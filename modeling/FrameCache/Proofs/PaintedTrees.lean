import FrameCache.Proofs.Concerns
import FrameCache.Proofs.Lasting
import FrameCache.Proofs.SceneWalk

/-!
# Painted canvases

When a canvas is painted, its nodes are visited in order, and every visit begins where the one
before has ended.  A visit draws its node.  If the node is a widget without live renderer, one is
created; a renderer of the widget whose deadline has passed is destroyed before.  Nothing else is
created or destroyed.

So a visited object is mounted as its last visit has it, a visited widget has a renderer, and a
texture that an object got stays unless its renderer is replaced later.  While the clock moves by
less than one lifetime all this stays alive.  Objects that are not visited keep all they have.
-/

namespace FrameCache

/-- A value that is in time is alive. -/
theorem Cache.peek_eq_resident {K V : Type} [DecidableEq K] {c : Cache K V} {k : K}
    {e : Entry V} {now : Instant} (he : c.store.find? k = some e) (hnow : now < e.deadline) :
  c.peek k now = c.resident k
  := by
  rw [resident_of_find? he]
  exact peek_eq_some_iff.2 ⟨e, he, hnow, rfl⟩

/-! ### What a visit creates and destroys -/

namespace Visit

/-- The node is a widget without live renderer. -/
def Creates (v : Visit) : Prop :=
  v.node.kind = .widget ∧ v.studio.inventory.renderers.peek v.node.object v.studio.now = none

instance : DecidablePred Creates := fun v =>
  inferInstanceAs (Decidable (v.node.kind = .widget
    ∧ v.studio.inventory.renderers.peek v.node.object v.studio.now = none))

/-- The renderer of the widget, if its deadline has passed. -/
def replaced? (v : Visit) : Option Renderer :=
  match v.node.kind with
  | .widget => v.studio.inventory.renderers.lapsed v.node.object v.studio.now
  | .plain => none

end Visit

namespace Studio

variable (s : Studio) (o : ObjectId)

theorem destroyed_dismantle (expiredAt : Option Instant) :
  (s.dismantle o expiredAt).2.host.log.destroyed
    = ((s.lapsedRenderer o expiredAt).map (Prod.mk o)).toList ++ s.host.log.destroyed
  := by
  cases h : s.lapsedRenderer o expiredAt with
  | none =>
    rw [dismantle_of_none h]
    rfl
  | some r =>
    rw [dismantle_of_some h, Log.destroyed, Host.filterMap_recordAll]
    cases s.inventory.textures.resident o <;> rfl

theorem created_dismantle (expiredAt : Option Instant) :
  (s.dismantle o expiredAt).2.host.log.created = s.host.log.created
  := by
  cases h : s.lapsedRenderer o expiredAt with
  | none => rw [dismantle_of_none h]
  | some r =>
    rw [dismantle_of_some h, Log.created, Host.filterMap_recordAll]
    cases s.inventory.textures.resident o <;> rfl

theorem accounts_create :
  (s.create o).host.log.created = (o, ⟨s.host.log.renderers + 1⟩) :: s.host.log.created
    ∧ (s.create o).host.log.destroyed = s.host.log.destroyed
  := ⟨rfl, rfl⟩

/-- A renderer that was looked up in vain has lapsed if there is one. -/
theorem lapsedRenderer_findRenderer (h : s.inventory.renderers.peek o s.now = none) :
  (s.query fun i now => i.findRenderer o now).2.lapsedRenderer o (some s.now)
    = s.inventory.renderers.lapsed o s.now
  := congrArg (fun e : Option (Entry Renderer) => (e.filter (Entry.lapsedBy (some s.now))).map
    Entry.value) (Cache.find?_get_of_not_live _ o o s.now h)

/-- A widget that is asked for its renderer loses the one whose deadline has passed. -/
theorem destroyed_renderer :
  (s.renderer o).2.host.log.destroyed
    = ((s.inventory.renderers.lapsed o s.now).map (Prod.mk o)).toList ++ s.host.log.destroyed
  := by
  cases h : s.inventory.renderers.peek o s.now with
  | some r =>
    rw [renderer_of_live h, Cache.lapsed_of_peek_eq_some h]
    rfl
  | none =>
    rw [renderer_of_not_live h, (accounts_create _ o).2, destroyed_dismantle,
      s.lapsedRenderer_findRenderer o h]
    rfl

/-- It creates one if it has none that is alive. -/
theorem created_renderer :
  (s.renderer o).2.host.log.created.map Prod.fst
    = (if s.inventory.renderers.peek o s.now = none then [o] else [])
      ++ s.host.log.created.map Prod.fst
  := by
  cases h : s.inventory.renderers.peek o s.now with
  | some r =>
    rw [renderer_of_live h]
    rfl
  | none =>
    rw [renderer_of_not_live h, (accounts_create _ o).1, created_dismantle]
    rfl

/-- Getting a texture concerns no renderer. -/
theorem accounts_provideTexture (n : Node) :
  (s.provideTexture n).2.host.log.created = s.host.log.created
    ∧ (s.provideTexture n).2.host.log.destroyed = s.host.log.destroyed
  := by
  rw [provideTexture]
  split
  · cases h : s.inventory.textures.peek n.object s.now with
    | some t =>
      rw [texture_of_live h]
      exact ⟨rfl, rfl⟩
    | none =>
      rw [texture_of_not_live h]
      exact ⟨rfl, rfl⟩
  · exact ⟨rfl, rfl⟩

end Studio

namespace Visit

variable (v : Visit)

/-- The studio when the node is mounted and is about to get its renderer. -/
def mounted (v : Visit) : Studio :=
  v.studio.update fun i now => i.mount v.node.object ⟨v.canvas, v.node.kind⟩ now

theorem created_after :
  v.after.host.log.created.map Prod.fst
    = (if v.Creates then [v.node.object] else []) ++ v.studio.host.log.created.map Prod.fst
  := by
  have htexture := ((v.mounted.provideRenderer v.node).accounts_provideTexture v.node).1
  refine (congrArg (List.map Prod.fst) htexture).trans ?_
  cases hk : v.node.kind with
  | widget =>
    rw [Studio.provideRenderer_of_widget _ hk, Studio.created_renderer]
    simp only [Creates, hk, true_and]
    rw [mounted, Studio.renderers_mount]
    rfl
  | plain =>
    rw [Studio.provideRenderer_of_plain _ hk, if_neg]
    · rfl
    · rintro ⟨hw, -⟩
      rw [hk] at hw
      cases hw

theorem destroyed_after :
  v.after.host.log.destroyed
    = (v.replaced?.map (Prod.mk v.node.object)).toList ++ v.studio.host.log.destroyed
  := by
  have htexture := ((v.mounted.provideRenderer v.node).accounts_provideTexture v.node).2
  refine htexture.trans ?_
  cases hk : v.node.kind with
  | widget =>
    rw [Studio.provideRenderer_of_widget _ hk, Studio.destroyed_renderer, mounted,
      Studio.renderers_mount, replaced?, hk]
    rfl
  | plain =>
    rw [Studio.provideRenderer_of_plain _ hk, replaced?, hk]
    rfl

/-- A visit draws its node, and nothing else. -/
theorem paints_after :
  v.after.host.log.paints = v.paint :: v.studio.host.log.paints
  := by
  have hsilent := Studio.silent_provide v.studio v.canvas v.node
  have hpaints : v.provided.2.host.log.paints = v.studio.host.log.paints := by
    rw [← Log.paints_plain, ← Log.paints_plain]
    exact congrArg _ hsilent.plain
  exact congrArg (v.paint :: ·) hpaints

end Visit

/-! ### Visits one after the other -/

namespace Studio

variable {s : Studio} {c : CanvasId} {nodes : List (Node × Position)}

/-- Every visit begins where the one before has ended. -/
theorem cons_map_after_visits (s : Studio) (c : CanvasId) (nodes : List (Node × Position)) :
  s :: (s.visits c nodes).map Visit.after
    = (s.visits c nodes).map Visit.studio ++ [(s.paintAll c nodes).2]
  := by
  induction nodes generalizing s with
  | nil => rfl
  | cons n nodes ih =>
    rw [visits, List.map_cons, List.map_cons, List.cons_append]
    exact congrArg (s :: ·) (ih (paintNode c s n))

/-- After a visit the rest of the nodes are painted. -/
theorem exists_nodes_of_visits {earlier later : List Visit} {v : Visit}
    (h : s.visits c nodes = earlier ++ v :: later) :
  ∃ rest, later = v.after.visits c rest ∧ (s.paintAll c nodes).2 = (v.after.paintAll c rest).2
  := by
  induction nodes generalizing s earlier with
  | nil => cases earlier <;> cases h
  | cons n nodes ih =>
    cases earlier with
    | nil =>
      obtain ⟨rfl, rfl⟩ := List.cons.inj h
      exact ⟨nodes, rfl, rfl⟩
    | cons first earlier => exact ih (List.cons.inj h).2

/-! ### What objects have afterwards -/

theorem course_visit (v : Visit) :
  Course Act.Draws v.studio v.after
  := v.course_provided.append (course_record v.provided.2 trivial)

theorem mounting?_after (v : Visit) (o : ObjectId) :
  v.after.mounting? o = if o = v.node.object then
      some ⟨⟨v.canvas, v.node.kind⟩, v.studio.now.after v.studio.inventory.mountings.lifetime⟩
    else v.studio.mounting? o
  := mounting?_paintNode v.canvas v.studio v.node v.position o

/-- A widget that is asked for its renderer has one that lives for one lifetime from then on, or
from when the one before it was dismantled. -/
theorem exists_course_renderer (s : Studio) (o : ObjectId) :
  ∃ s₁ r, Course Act.Draws s s₁ ∧ Course Act.Draws s₁ (s.renderer o).2
    ∧ (s.renderer o).2.renderer? o = some ⟨r, s₁.now.after s.inventory.renderers.lifetime⟩
  := by
  cases h : s.inventory.renderers.peek o s.now with
  | some r =>
    refine ⟨s, r, .nil s, course_renderer s o, ?_⟩
    rw [renderer_of_live h]
    change (s.inventory.renderers.get o s.now).2.store.find? o = _
    rw [Cache.find?_get_of_live _ _ _ _ h, if_pos rfl]
  | none =>
    let found := (s.query fun i now => i.findRenderer o now).2
    have hlife : (found.dismantle o (some s.now)).2.inventory.renderers.lifetime
        = s.inventory.renderers.lifetime := by
      rw [lifetime_renderers_dismantle]
      apply Cache.lifetime_get
    let dismantled := (found.dismantle o (some s.now)).2
    refine ⟨dismantled, ⟨dismantled.host.log.renderers + 1⟩, ?_, ?_, ?_⟩
    · apply Course.cons (.findRenderer o) trivial trivial
      exact .single (.dismantle o (some s.now)) rfl trivial
    · rw [renderer_of_not_live h]
      exact .single (.create o) trivial (renderer?_dismantle_of_not_live h)
    · rw [renderer_of_not_live h, renderer?_create, if_pos rfl, hlife]

/-- A visited widget has a renderer that lives for one lifetime from some point of the visit on. -/
theorem exists_renderer?_after {v : Visit} (hk : v.node.kind = .widget) :
  ∃ s₁ r, Course Act.Draws v.studio s₁ ∧ Course Act.Draws s₁ v.after
    ∧ v.after.renderer? v.node.object
      = some ⟨r, s₁.now.after v.studio.inventory.renderers.lifetime⟩
  := by
  obtain ⟨s₁, r, hbefore, hafter, hr⟩ := v.mounted.exists_course_renderer v.node.object
  rw [← provideRenderer_of_widget _ hk] at hafter hr
  refine ⟨s₁, r, ?_, ?_, ?_⟩
  · exact .cons (.mount v.node.object ⟨v.canvas, v.node.kind⟩) trivial trivial hbefore
  · exact (hafter.append (course_provideTexture _ v.node)).append (course_record _ trivial)
  · refine (renderer?_paintNode v.canvas v.studio v.node v.position _).trans (hr.trans ?_)
    rw [Visit.mounted, renderers_mount]

/-- Unless the renderer of a widget has lapsed, it keeps its texture when it is asked for. -/
theorem texture?_renderer_of_not_lapsed {s : Studio} {o : ObjectId}
    (h : s.inventory.renderers.lapsed o s.now = none) (o' : ObjectId) :
  (s.renderer o).2.texture? o' = s.texture? o'
  := by
  cases hp : s.inventory.renderers.peek o s.now with
  | some r =>
    rw [renderer_of_live hp]
    rfl
  | none =>
    rw [renderer_of_not_live hp, texture?_create, texture?_dismantle,
      s.lapsedRenderer_findRenderer o hp, h, if_neg (by simp)]
    rfl

/-- A visit that asks for no texture of an object and does not replace its renderer leaves it the
texture that it has. -/
theorem texture?_after {v : Visit} {o : ObjectId}
    (h : v.node.object = o → v.node.textured = false ∧ v.replaced? = none) :
  v.after.texture? o = v.studio.texture? o
  := by
  by_cases ho : v.node.object = o
  · obtain ⟨htextured, hreplaced⟩ := h ho
    have hnone : ∀ s : Studio, (s.provideTexture v.node).2 = s := by
      intro s
      rw [provideTexture, htextured]
      rfl
    have hprovided : v.provided.2 = v.mounted.provideRenderer v.node := hnone _
    change v.provided.2.texture? o = _
    rw [hprovided]
    refine Eq.trans ?_ (v.studio.texture?_mount v.node.object o ⟨v.canvas, v.node.kind⟩)
    cases hk : v.node.kind with
    | widget =>
      rw [provideRenderer_of_widget _ hk, texture?_renderer_of_not_lapsed]
      · rw [Visit.mounted, hk]
      · rw [Visit.replaced?, hk] at hreplaced
        rw [Visit.mounted, renderers_mount]
        exact hreplaced
    | plain =>
      rw [provideRenderer_of_plain _ hk, Visit.mounted, hk]
  · exact texture?_paintNode_of_ne v.canvas v.studio v.position (Ne.symm ho)

/-- An object that is not painted keeps all that belongs to it. -/
theorem belongings_paintAll_of_not_mem {o : ObjectId} (ho : ∀ n ∈ nodes, n.1.object ≠ o) :
  (s.paintAll c nodes).2.belongings o = s.belongings o
  := by
  apply s.belongings_serve (.paint c nodes)
  rintro ⟨n, hn, hno⟩
  exact ho n hn hno

theorem ne_of_visits {o : ObjectId} (ho : ∀ v ∈ s.visits c nodes, v.node.object ≠ o) :
  ∀ n ∈ nodes, n.1.object ≠ o
  := by
  intro n hn
  rw [← s.map_visits c nodes] at hn
  obtain ⟨v, hv, rfl⟩ := List.mem_map.1 hn
  exact ho v hv

/-- An object is mounted as its last visit has it. -/
theorem mounting?_paintAll {earlier later : List Visit} {v : Visit}
    (h : s.visits c nodes = earlier ++ v :: later)
    (hlast : ∀ v' ∈ later, v'.node.object ≠ v.node.object) :
  (s.paintAll c nodes).2.mounting? v.node.object
    = some ⟨⟨c, v.node.kind⟩, v.studio.now.after v.studio.inventory.mountings.lifetime⟩
  := by
  obtain ⟨rest, rfl, hpainted⟩ := exists_nodes_of_visits h
  have hcanvas : v.canvas = c :=
    (exists_course_of_mem_visits (h ▸ List.mem_append_right _ List.mem_cons_self)).1
  have hrest := congrArg Belongings.mounting
    (belongings_paintAll_of_not_mem (c := c) (s := v.after) (ne_of_visits hlast))
  rw [hpainted]
  refine hrest.trans ((mounting?_after v _).trans ?_)
  rw [if_pos rfl, hcanvas]

/-- Where no widget of an object is painted, its renderer stays. -/
theorem renderer?_paintAll_of_no_widget {o : ObjectId}
    (ho : ∀ n ∈ nodes, n.1.object = o → n.1.kind = .plain) :
  (s.paintAll c nodes).2.renderer? o = s.renderer? o
  := by
  apply List.foldlRecOn (motive := fun s' : Studio => s'.renderer? o = s.renderer? o) nodes
    (paintNode c) rfl
  intro s' hs n hn
  rw [← hs]
  by_cases hno : n.1.object = o
  · exact renderer?_paintNode_of_plain c s' n.2 (ho n hn hno) o
  · exact renderer?_paintNode_of_ne c s' n.2 (Ne.symm hno)

/-- A painted widget has a renderer that lives for one lifetime from some point of the call on. -/
theorem exists_renderer?_paintAll {config : Config} (hs : s.Regular config) {o : ObjectId}
    (ho : ∃ n ∈ nodes, n.1.object = o ∧ n.1.kind = .widget) :
  ∃ s₁ r, Course Act.Draws s s₁ ∧ Course Act.Draws s₁ (s.paintAll c nodes).2
    ∧ (s.paintAll c nodes).2.renderer? o = some ⟨r, s₁.now.after config.lifetime⟩
  := by
  induction nodes generalizing s with
  | nil =>
    obtain ⟨n, hn, -⟩ := ho
    cases hn
  | cons first nodes ih =>
    -- The renderer is got, or renewed, with the last widget of the object.
    by_cases hlater : ∃ n ∈ nodes, n.1.object = o ∧ n.1.kind = .widget
    · have hfirst := course_paintNode c s first
      obtain ⟨s₁, r, hbefore, hafter, hr⟩ := ih (hs.course hfirst) hlater
      exact ⟨s₁, r, hfirst.append hbefore, hafter, hr⟩
    · obtain ⟨n, hn, hno, hk⟩ := ho
      rcases List.mem_cons.1 hn with rfl | hn
      · subst hno
        obtain ⟨s₁, r, hbefore, hafter, hr⟩ := exists_renderer?_after (v := ⟨c, n.1, n.2, s⟩) hk
        have hkept : ((paintNode c s n).paintAll c nodes).2.renderer? n.1.object
            = (paintNode c s n).renderer? n.1.object := by
          apply renderer?_paintAll_of_no_widget
          intro n' hn' hno'
          cases hk' : n'.1.kind with
          | widget => exact absurd ⟨n', hn', hno', hk'⟩ hlater
          | plain => rfl
        refine ⟨s₁, r, hbefore, hafter.append (course_paintAll _ c nodes), hkept.trans ?_⟩
        rw [← hs.renderers]
        exact hr
      · exact absurd ⟨n, hn, hno, hk⟩ hlater

/-- A texture that an object got stays until another is asked for or the renderer is replaced. -/
theorem texture?_paintAll {o : ObjectId}
    (h : ∀ v ∈ s.visits c nodes, v.node.object = o → v.node.textured = false ∧ v.replaced? = none) :
  (s.paintAll c nodes).2.texture? o = s.texture? o
  := by
  induction nodes generalizing s with
  | nil => rfl
  | cons n nodes ih =>
    have hfirst := texture?_after (h _ List.mem_cons_self)
    exact (ih fun v hv => h v (List.mem_cons_of_mem _ hv)).trans hfirst

/-- Every object that is visited has a last visit. -/
theorem exists_last_visit {visits : List Visit} {v : Visit} (hv : v ∈ visits) :
  ∃ earlier last later, visits = earlier ++ last :: later
    ∧ last.node.object = v.node.object ∧ ∀ v' ∈ later, v'.node.object ≠ v.node.object
  := by
  have hsome : (visits.reverse.find? fun v' => v'.node.object = v.node.object).isSome :=
    List.find?_isSome.2 ⟨v, List.mem_reverse.2 hv, decide_eq_true rfl⟩
  obtain ⟨last, hlast⟩ := Option.isSome_iff_exists.1 hsome
  obtain ⟨ho, later, earlier, hvisits, hlater⟩ := List.find?_eq_some_iff_append.1 hlast
  refine ⟨earlier.reverse, last, later.reverse, ?_, of_decide_eq_true ho, ?_⟩
  · rw [← visits.reverse_reverse, hvisits, List.reverse_append, List.reverse_cons,
      List.append_assoc]
    rfl
  · intro v' hv'
    simpa using hlater v' (List.mem_reverse.1 hv')

/-! ### How long it lasts -/

/-- From `s` to `s'` the clock moves by less than `d`, without coming to the last instant; so it
does not start again at the epoch either, and never shows less than at first. -/
structure Within (d : Duration) (s s' : Studio) : Prop where
  /-- The clock never shows less than at first. -/
  forward : ∀ new, s'.host.log.calls = new ++ s.host.log.calls → ∀ call ∈ new, s.now ≤ call.ended
  /-- The clock has not come to the last instant. -/
  early : s'.now.nanos < horizon
  /-- The clock has moved by less than `d`. -/
  moved : s'.now.nanos < s.now.nanos + d.nanos

/-- What is alive for `d` from some point on is still alive in the end. -/
theorem Within.lt_after {P Q : Studio → Act → Prop} {d : Duration} {s s₁ s' : Studio}
    (h : s.Within d s') (hbefore : Course P s s₁) (hafter : Course Q s₁ s') :
  s'.now < s₁.now.after d
  := by
  obtain ⟨es, hes⟩ := hbefore.exists_calls
  obtain ⟨first, hfirst⟩ := hbefore.extends_log
  obtain ⟨later, hlater⟩ := hafter.extends_log
  have hforward : ∀ call ∈ first, s.now ≤ call.ended := by
    intro call hcall
    apply h.forward (later ++ first) _ call (List.mem_append_right _ hcall)
    rw [hlater, hfirst, List.append_assoc]
  have hle : s.now ≤ s₁.host.now := by
    rw [hes] at hfirst ⊢
    exact Host.now_of_calls (P := (s.now ≤ ·)) (Nat.le_refl _) hfirst hforward
  rw [Instant.lt_iff, Instant.nanos_after]
  have hnanos : s.now.nanos ≤ s₁.now.nanos := hle
  have hearly := h.early
  have hmoved := h.moved
  omega

/-- Drawing leaves texts, icons, the shown canvases and the schedule as they are. -/
theorem Act.Draws.rest {s : Studio} {a : Act} (h : Act.Draws s a) :
  (a.run s).inventory = { s.inventory with
    mountings := (a.run s).inventory.mountings
    renderers := (a.run s).inventory.renderers
    textures := (a.run s).inventory.textures
    themes := (a.run s).inventory.themes }
  := by
  cases a with
  | keepValues texts icons => exact h.elim
  | present canvases => exact h.elim
  | plan schedule => exact h.elim
  | unmount o cause accept => exact h.elim
  | setTheme o t => exact h.elim
  | mount o m => rw [run, update, Inventory.mount_eq]
  | touch o => rw [run, query, Inventory.touch_eq]
  | dismantle o expiredAt =>
    rw [run]
    cases hr : s.lapsedRenderer o expiredAt with
    | none => rw [dismantle_of_none hr]
    | some r => rw [dismantle_of_some hr]
  | texture o =>
    rw [run]
    cases hp : s.inventory.textures.peek o s.now with
    | some t => rw [texture_of_live hp]
    | none =>
      rw [texture_of_not_live hp]
      rfl
  | dropTexture o => rw [run, dropTexture_eq]
  | _ => rfl

theorem Course.rest {s s' : Studio} (h : Course Act.Draws s s') :
  s'.inventory = { s.inventory with
    mountings := s'.inventory.mountings
    renderers := s'.inventory.renderers
    textures := s'.inventory.textures
    themes := s'.inventory.themes }
  := by
  induction h with
  | nil => rfl
  | cons a hp _ _ ih =>
    rw [ih, Act.Draws.rest hp]

/-! ### Painting a canvas -/

/-- What painting a canvas does.  Whatever requests a studio has served, and whatever canvas is
painted at whatever instant, the nodes of its walk are drawn in order, each at its position, and
counted.  The visits of the nodes take place one after the other.  A visit draws its node, creates a
renderer just if the node is a widget without live renderer, and destroys one just if it is that of
the widget and its deadline has passed.

Afterwards a visited object is mounted on the canvas as its last visit has it, and a visited widget
has a renderer.  If a visit got a texture, and no later one asks for a texture of the object or
replaces its renderer, this is the texture of the object.  All this is alive if the clock has moved
by less than one lifetime.  Objects that are not visited keep what belongs to them, with no call
about them, and nothing else that the inventory knows changes. -/
theorem paintAll_effects (layouts : Layouts) (config : Config) (policy : Policy)
    (rs : List (Instant × Request)) (t : Instant) (c : CanvasId) (canvas : Canvas) :
  let s := ((ofConfig layouts config policy).serveAll rs).atTime t
  let visits := s.visits c canvas.walk
  let painted := s.paintAll c canvas.walk
  let i := painted.2.inventory
  painted.1 = canvas.walk.length
    ∧ painted.2.host.log.paints = (visits.map Visit.paint).reverse ++ s.host.log.paints
    ∧ visits.map (fun v => (v.node, v.position)) = canvas.walk
    ∧ s :: visits.map Visit.after = visits.map Visit.studio ++ [painted.2]
    ∧ (∀ v ∈ visits,
      v.after.host.log.paints = v.paint :: v.studio.host.log.paints
      ∧ v.after.host.log.created.map Prod.fst
        = (if v.Creates then [v.node.object] else []) ++ v.studio.host.log.created.map Prod.fst
      ∧ v.after.host.log.destroyed
        = (v.replaced?.map (Prod.mk v.node.object)).toList ++ v.studio.host.log.destroyed)
    ∧ (∀ earlier v later, visits = earlier ++ v :: later →
      ((∀ v' ∈ later, v'.node.object ≠ v.node.object) →
        i.mountings.resident v.node.object = some ⟨c, v.node.kind⟩)
      ∧ (v.node.kind = .widget → i.renderers.contains v.node.object)
      ∧ ∀ h, v.texture = some h → (∀ v' ∈ later, v'.node.object = v.node.object →
          v'.node.textured = false ∧ v'.replaced? = none) →
        i.textures.resident v.node.object = some h)
    ∧ (s.Within config.lifetime painted.2 → ∀ v ∈ visits,
      i.mountings.peek v.node.object painted.2.now = i.mountings.resident v.node.object
      ∧ (v.node.kind = .widget →
        i.renderers.peek v.node.object painted.2.now = i.renderers.resident v.node.object)
      ∧ i.textures.peek v.node.object painted.2.now = i.textures.resident v.node.object)
    ∧ (∀ o, (∀ n ∈ canvas.walk, n.1.object ≠ o) → painted.2.belongings o = s.belongings o)
    ∧ i = { s.inventory with
      mountings := i.mountings
      renderers := i.renderers
      textures := i.textures
      themes := i.themes }
  := by
  intro s visits painted i
  have hregular : s.Regular config :=
    (regular_serveAll (regular_ofConfig layouts config policy) rs).atTime t
  have hcourse : Course Act.Draws s painted.2 := course_paintAll s c canvas.walk
  have hwidget : ∀ v ∈ visits, v.node.kind = .widget →
      ∃ n ∈ canvas.walk, n.1.object = v.node.object ∧ n.1.kind = .widget := by
    intro v hv hk
    rw [← s.map_visits c canvas.walk]
    exact ⟨(v.node, v.position), List.mem_map_of_mem hv, rfl, hk⟩
  refine ⟨rfl, s.paints_paintAll c canvas.walk, s.map_visits c canvas.walk,
    s.cons_map_after_visits c canvas.walk,
    fun v _ => ⟨v.paints_after, v.created_after, v.destroyed_after⟩, ?had, ?alive,
    fun o ho => belongings_paintAll_of_not_mem ho, hcourse.rest⟩
  case had =>
    intro earlier v later hvisits
    have hv : v ∈ visits := by
      rw [hvisits]
      exact List.mem_append_right _ List.mem_cons_self
    refine ⟨?_, ?_, ?_⟩
    · intro hlast
      exact Cache.resident_of_find? (mounting?_paintAll hvisits hlast)
    · intro hk
      obtain ⟨_, r, -, -, hr⟩ := exists_renderer?_paintAll (c := c) hregular (hwidget v hv hk)
      exact Option.isSome_iff_exists.2 ⟨_, hr⟩
    · intro h hh hlater
      obtain ⟨rest, rfl, hpainted⟩ := exists_nodes_of_visits hvisits
      have hkept := congrArg (Option.map Entry.value) (texture?_paintAll hlater)
      rw [← hpainted] at hkept
      exact hkept.trans (v.resident_of_texture hh)
  case alive =>
    intro hwithin v hv
    refine ⟨?_, ?_, ?_⟩
    · obtain ⟨earlier, last, later, hvisits, ho, hlater⟩ := exists_last_visit hv
      obtain ⟨-, hbefore, hafter⟩ := exists_course_of_mem_visits
        (hvisits ▸ List.mem_append_right _ List.mem_cons_self : last ∈ visits)
      rw [← ho] at hlater ⊢
      apply Cache.peek_eq_resident (mounting?_paintAll hvisits hlater)
      rw [(hregular.course hbefore).mountings]
      exact hwithin.lt_after hbefore ((course_visit last).append hafter)
    · intro hk
      obtain ⟨s₁, r, hbefore, hafter, hr⟩ :=
        exists_renderer?_paintAll (c := c) hregular (hwidget v hv hk)
      exact Cache.peek_eq_resident hr (hwithin.lt_after hbefore hafter)
    · rw [Cache.peek_of_lasting ((hregular.course hcourse).lasting _), if_pos hwithin.early]

/-- Creating a renderer takes a second, and no texture can be had for one object. -/
def slowPainter : Policy where
  pause _ e := match e with
    | .rendererCreated _ _ => .ofSeconds 1
    | _ => .zero
  upload l o := if o = ⟨3⟩ then none else some ⟨.ofNat (l.textures + 1)⟩

/-- A widget on another canvas, with a renderer and a texture, and an object that is not painted. -/
def mountedElsewhere : List (Instant × Request) :=
  [(.ofNanos 1, .mount ⟨1⟩ ⟨⟨2⟩, .widget⟩), (.ofNanos 1, .renderer ⟨1⟩), (.ofNanos 1, .texture ⟨1⟩),
    (.ofNanos 1, .mount ⟨4⟩ ⟨⟨2⟩, .plain⟩)]

/-- The widget is painted twice, and once more as a plain object. -/
def repeatedWidget : Canvas :=
  .sheet { nodes := #[(⟨⟨1⟩, .widget, true⟩, .origin), (.ofTexture ⟨3⟩, .origin),
    (.widget ⟨1⟩, .origin), (.plain ⟨1⟩, .origin)] }

/-- When all that the widget had is expired, its renderer is replaced with its first visit, and what
it then has is alive after the last. -/
theorem paintAll_effects_repeatedWidget :
  let s := ((ofConfig .spread .standard slowPainter).serveAll mountedElsewhere).atTime
    (.ofDuration (.ofSeconds 600))
  let painted := s.paintAll ⟨1⟩ repeatedWidget.walk
  let i := painted.2.inventory
  painted.1 = 4
    ∧ painted.2.host.log.created = [(⟨1⟩, ⟨2⟩), (⟨1⟩, ⟨1⟩)]
    ∧ painted.2.host.log.destroyed = [(⟨1⟩, ⟨1⟩)]
    ∧ s.Within Config.standard.lifetime painted.2
    ∧ i.mountings.peek ⟨1⟩ painted.2.now = some ⟨⟨1⟩, .plain⟩
    ∧ i.renderers.peek ⟨1⟩ painted.2.now = some ⟨2⟩
    ∧ i.textures.peek ⟨1⟩ painted.2.now = some ⟨2⟩
    ∧ i.mountings.resident ⟨3⟩ = some ⟨⟨1⟩, .plain⟩ ∧ i.textures.resident ⟨3⟩ = none
    ∧ painted.2.belongings ⟨4⟩ = s.belongings ⟨4⟩
  := by
  intro s painted i
  obtain ⟨hcount, -, hwalk, -, -, -, halive, hothers, -⟩ := paintAll_effects .spread .standard
    slowPainter mountedElsewhere (.ofDuration (.ofSeconds 600)) ⟨1⟩ repeatedWidget
  have hwithin : s.Within Config.standard.lifetime painted.2 := by
    refine ⟨?_, by decide +kernel, by decide +kernel⟩
    intro new hnew
    have hbefore : s.host.log.calls.length = 2 := by decide +kernel
    have hafter : painted.2.host.log.calls.length = 12 := by decide +kernel
    have hlength : new.length = 10 := by
      rw [hnew, List.length_append, hbefore] at hafter
      omega
    have htake : painted.2.host.log.calls.take 10 = new := by
      rw [hnew, List.take_left' hlength]
    rw [← htake]
    decide +kernel
  have hvisited : ((⟨⟨1⟩, .widget, true⟩, .origin) : Node × Position) ∈ repeatedWidget.walk :=
    List.mem_cons_self
  rw [← hwalk] at hvisited
  obtain ⟨v, hv, hnode⟩ := List.mem_map.1 hvisited
  obtain ⟨hmounting, hrenderer, htexture⟩ := halive hwithin v hv
  rw [(Prod.mk.inj hnode).1] at hmounting hrenderer htexture
  refine ⟨hcount, by decide +kernel, by decide +kernel, hwithin, ?_, ?_, ?_, by decide +kernel,
    by decide +kernel, hothers ⟨4⟩ (by decide +kernel)⟩
  · refine hmounting.trans ?_
    decide +kernel
  · refine (hrenderer rfl).trans ?_
    decide +kernel
  · refine htexture.trans ?_
    decide +kernel

end Studio

end FrameCache
