import FrameCache.Proofs.Sweeping

/-!
# What concerns an object

An act is about one object at most, and a request concerns the objects that it names.  Whatever
does not concern an object leaves all that belongs to it as it was; only sweeps and the forgetting
of canvases give it back.
-/

namespace FrameCache

theorem Host.about_record (h : Host) {e : Event} {o : ObjectId} (he : e.object? ≠ some o) :
  (h.record e).log.about o = h.log.about o
  := List.filter_cons_of_neg (by simpa using he)

namespace Studio

variable {s : Studio} {o o' : ObjectId}

/-! ### Acts -/

/-- The object that an act is about. -/
def Act.object? : Act → Option ObjectId
  | .call e => e.object?
  | .keepValues _ _ | .present _ | .plan _ => none
  | .canvasOf o | .mount o _ | .touch o | .unmount o _ _ => some o
  | .findRenderer o | .create o | .dismantle o _ => some o
  | .texture o | .dropTexture o | .setTheme o _ | .themeOf o => some o

/-- An act leaves alone what belongs to other objects. -/
theorem Act.belongings_run (a : Act) (ha : a.object? ≠ some o) :
  (a.run s).belongings o = s.belongings o
  := by
  have hne : ∀ o', a.object? = some o' → o ≠ o' := by
    rintro o' ho rfl
    apply ha ho
  cases a with
  | call e => exact belongings_congr rfl rfl rfl rfl (s.host.about_record ha)
  | keepValues texts icons => rfl
  | present canvases => rfl
  | plan schedule => rfl
  | canvasOf o' =>
    exact belongings_congr (Cache.find?_get_of_ne _ _ (hne o' rfl)) rfl rfl rfl rfl
  | mount o' m =>
    have hmounting := s.inventory.find?_mount o' o m s.now
    rw [if_neg (hne o' rfl)] at hmounting
    rw [run, update, Inventory.mount_eq]
    exact belongings_congr hmounting rfl rfl rfl rfl
  | touch o' =>
    have hmounting := s.mounting?_renew o' o
    have hrenderer := s.renderer?_renew o' o
    rw [if_neg (hne o' rfl)] at hmounting
    rw [if_neg fun h => hne o' rfl h.1] at hrenderer
    rw [renew, query, Inventory.touch_eq] at hmounting hrenderer
    rw [run, query, Inventory.touch_eq]
    exact belongings_congr hmounting hrenderer rfl rfl rfl
  | unmount o' cause accept =>
    have hmounting := s.inventory.mountings.find?_takeIf o' o cause accept
    rw [if_neg (hne o' rfl)] at hmounting
    exact belongings_congr hmounting rfl rfl rfl rfl
  | findRenderer o' =>
    exact belongings_congr rfl (Cache.find?_get_of_ne _ _ (hne o' rfl)) rfl rfl rfl
  | create o' =>
    have hrenderer := s.renderer?_create o' o
    rw [if_neg (hne o' rfl)] at hrenderer
    have hcalls := s.host.about_record
      (e := .rendererCreated o' ⟨s.host.log.renderers + 1⟩) ha
    exact belongings_congr rfl hrenderer rfl rfl hcalls
  | dismantle o' expiredAt =>
    rw [run, belongings_dismantle, if_neg (hne o' rfl)]
  | texture o' =>
    have htexture := texture?_texture_of_ne s (hne o' rfl)
    cases hp : s.inventory.textures.peek o' s.now with
    | some t =>
      rw [texture_of_live hp] at htexture
      rw [run, texture_of_live hp]
      exact belongings_congr rfl rfl htexture rfl rfl
    | none =>
      rw [texture_of_not_live hp] at htexture
      rw [run, texture_of_not_live hp]
      exact belongings_congr rfl rfl htexture rfl (s.host.about_record ha)
  | dropTexture o' =>
    rw [run, belongings_dropTexture, if_neg (hne o' rfl)]
  | setTheme o' t =>
    have htheme := s.inventory.themes.find?_insert o' o s.now t
    rw [if_neg (hne o' rfl)] at htheme
    exact belongings_congr rfl rfl rfl htheme rfl
  | themeOf o' =>
    exact belongings_congr rfl rfl rfl (Cache.find?_get_of_ne _ _ (hne o' rfl)) rfl

/-! ### Drawing -/

section

variable (h : o' ≠ o)
include h

theorem belongings_renderer_of_ne (s : Studio) :
  (s.renderer o').2.belongings o = s.belongings o
  := by
  have hne : some o' ≠ some o := fun ho => h (Option.some.inj ho)
  have hfind := Act.belongings_run (s := s) (.findRenderer o') hne
  cases hp : s.inventory.renderers.peek o' s.now with
  | some r =>
    rw [renderer_of_live hp]
    exact hfind
  | none =>
    rw [renderer_of_not_live hp]
    refine (Act.belongings_run (.create o') hne).trans ?_
    exact (Act.belongings_run (.dismantle o' (some s.now)) hne).trans hfind

/-- Painting a node concerns its object. -/
theorem belongings_paintNode_of_ne (s : Studio) (c : CanvasId) {n : Node} (p : Position)
    (hn : n.object = o') :
  (paintNode c s (n, p)).belongings o = s.belongings o
  := by
  subst hn
  have hne : some n.object ≠ some o := fun ho => h (Option.some.inj ho)
  have hrenderer : ∀ s : Studio, (s.provideRenderer n).belongings o = s.belongings o := by
    intro s
    rw [provideRenderer]
    split
    · exact belongings_renderer_of_ne h s
    · rfl
  have htexture : ∀ s : Studio, (s.provideTexture n).2.belongings o = s.belongings o := by
    intro s
    rw [provideTexture]
    split
    · exact Act.belongings_run (.texture n.object) hne
    · rfl
  rw [paintNode_eq]
  refine (Act.belongings_run (.call (.painted n.object p _)) hne).trans ?_
  rw [htexture, hrenderer]
  exact Act.belongings_run (.mount n.object ⟨c, n.kind⟩) hne

end

/-! ### Requests -/

/-- The request is a use of the object, or of what belongs to it. -/
def Request.Concerns (o : ObjectId) : Request → Prop
  | .canvasOf o' | .mount o' _ | .touch o' | .renderer o' | .findRenderer o' => o' = o
  | .setTheme o' _ | .themeOf o' | .texture o' | .dropTexture o' => o' = o
  | .paint _ nodes | .walk nodes => ∃ n ∈ nodes, n.1.object = o
  | _ => False

/-- What a request leaves to an object that it does not concern. -/
def bystander (s : Studio) (o : ObjectId) : Request → Belongings
  | .sweep repainted refreshed =>
    if (s.decision repainted refreshed).depth = .full then
      (s.belongings o).sweep o s.now fun c =>
        s.inScope c (s.decision repainted refreshed).canvases
    else s.belongings o
  | .forgetCanvas c => (s.belongings o).forget o c
  | _ => s.belongings o

/-- Only sweeps and the forgetting of canvases give back what belongs to other objects. -/
theorem belongings_serve (r : Request) (hr : ¬ r.Concerns o) :
  (s.serve r).belongings o = s.bystander o r
  := by
  have hone : ∀ o' : ObjectId, ¬ o' = o → some o' ≠ some o := fun o' h ho => h (Option.some.inj ho)
  cases r with
  | measured k => rfl
  | setMeasured k v => rfl
  | icon k => rfl
  | setIcon k v => rfl
  | forgetTheme => rfl
  | decide now repainted refreshed => rfl
  | register c =>
    rw [serve_register]
    rfl
  | canvasOf o' => exact Act.belongings_run (.canvasOf o') (hone o' hr)
  | mount o' m => exact Act.belongings_run (.mount o' m) (hone o' hr)
  | touch o' => exact Act.belongings_run (.touch o') (hone o' hr)
  | renderer o' => exact belongings_renderer_of_ne hr s
  | findRenderer o' => exact Act.belongings_run (.findRenderer o') (hone o' hr)
  | setTheme o' t => exact Act.belongings_run (.setTheme o' t) (hone o' hr)
  | themeOf o' => exact Act.belongings_run (.themeOf o') (hone o' hr)
  | texture o' => exact Act.belongings_run (.texture o') (hone o' hr)
  | dropTexture o' => exact Act.belongings_run (.dropTexture o') (hone o' hr)
  | sweep repainted refreshed => exact s.belongings_sweep o repainted refreshed
  | forgetCanvas c => exact belongings_forgetCanvas s o c
  | paint c nodes =>
    apply List.foldlRecOn (motive := fun s' : Studio => s'.belongings o = s.belongings o) nodes
      (paintNode c) rfl
    intro s' hs n hn
    rw [← hs]
    apply belongings_paintNode_of_ne _ s' c n.2 rfl
    intro ho
    apply hr ⟨n, hn, ho⟩
  | walk nodes =>
    rw [serve, snd_keepAlive]
    apply List.foldlRecOn (motive := fun s' : Studio => s'.belongings o = s.belongings o)
      nodes _ rfl
    intro s' hs n hn
    rw [← hs]
    apply Act.belongings_run (.touch n.1.object)
    apply hone
    intro ho
    apply hr ⟨n, hn, ho⟩

end Studio

end FrameCache
