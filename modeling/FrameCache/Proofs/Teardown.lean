import FrameCache.Proofs.Transactions

/-!
# Giving back renderers

A `Request` is the use of a single operation of a studio.  Whatever requests are served, at
whatever readings of the clock, a renderer is given back in one piece with the texture and
the theme of its object, and just once.
-/

namespace FrameCache

namespace Studio

variable {s : Studio}

/-! ### Requests -/

/-- A use of a studio that may change it. -/
inductive Request where
  | measured (k : TextKey)
  | setMeasured (k : TextKey) (v : TextMetric)
  | icon (k : IconKey)
  | setIcon (k : IconKey) (v : IconRaster)
  | forgetTheme
  | register (c : CanvasId)
  | canvasOf (o : ObjectId)
  | mount (o : ObjectId) (m : Mounting)
  | touch (o : ObjectId)
  | renderer (o : ObjectId)
  | findRenderer (o : ObjectId)
  | setTheme (o : ObjectId) (t : WidgetTheme)
  | themeOf (o : ObjectId)
  | texture (o : ObjectId)
  | dropTexture (o : ObjectId)
  | decide (now : Instant) (repainted : Bool) (refreshed : List CanvasId)
  | sweep (repainted : Bool) (refreshed : List CanvasId)
  | forgetCanvas (c : CanvasId)
  | paint (c : CanvasId) (nodes : List (Node × Position))
  | walk (nodes : List (Node × Position))

/-- Serves a request. -/
def serve (s : Studio) : Request → Studio
  | .measured k => (s.query fun i now => i.measured k now).2
  | .setMeasured k v => s.update fun i now => i.setMeasured k v now
  | .icon k => (s.query fun i now => i.icon k now).2
  | .setIcon k v => s.update fun i now => i.setIcon k v now
  | .forgetTheme => s.update fun i _ => i.forgetTheme
  | .register c => s.update fun i _ => i.register c
  | .canvasOf o => (s.query fun i now => i.canvasOf o now).2
  | .mount o m => s.update fun i now => i.mount o m now
  | .touch o => (s.query fun i now => i.touch o now).2
  | .renderer o => (s.renderer o).2
  | .findRenderer o => (s.query fun i now => i.findRenderer o now).2
  | .setTheme o t => s.update fun i now => i.setTheme o t now
  | .themeOf o => (s.query fun i now => i.themeOf o now).2
  | .texture o => (s.texture o).2
  | .dropTexture o => (s.dropTexture o).2
  | .decide now repainted refreshed =>
    { s with
      inventory.schedule := (s.inventory.schedule.decideAt now repainted refreshed).2 }
  | .sweep repainted refreshed => (s.sweep repainted refreshed).2
  | .forgetCanvas c => (s.forgetCanvas c).2
  | .paint c nodes => (s.paintAll c nodes).2
  | .walk nodes => (s.keepAlive nodes).2

/-- The studio with another reading of the clock. -/
def atTime (s : Studio) (t : Instant) : Studio := { s with host.clock := ⟨t⟩ }

/-- Serves requests, each at a reading of the clock of its own. -/
def serveAll (s : Studio) (rs : List (Instant × Request)) : Studio :=
  rs.foldl (fun s r => (s.atTime r.1).serve r.2) s

theorem serve_register (s : Studio) (c : CanvasId) :
  s.serve (.register c) = (Act.present (s.inventory.register c).registered).run s
  := by
  rw [serve, update, Inventory.register]
  split
  · rfl
  · rfl

/-- A request is served by a course of acts, which sets a theme only if this is the request. -/
theorem course_serve_dressing (s : Studio) (r : Request) :
  Course (fun _ a => ∀ o t, a = .setTheme o t → r = .setTheme o t) s (s.serve r)
  := by
  have hone : ∀ a : Act, (∀ o t, a ≠ .setTheme o t) → a.Allowed s →
      Course (fun _ a => ∀ o t, a = .setTheme o t → r = .setTheme o t) s (a.run s) :=
    fun a hne ha => .single a (fun o t h => absurd h (hne o t)) ha
  have hdraws : ∀ {s' : Studio}, Course Act.Draws s s' →
      Course (fun _ a => ∀ o t, a = .setTheme o t → r = .setTheme o t) s s' := by
    intro s' h
    apply h.mono
    rintro _ _ ha o t rfl
    exact ha.elim
  cases r with
  | measured k =>
    apply hone (.keepValues (s.inventory.texts.get k s.now).2 s.inventory.icons) nofun trivial
  | setMeasured k v =>
    apply hone (.keepValues (s.inventory.texts.insert k s.now v).2 s.inventory.icons) nofun trivial
  | icon k =>
    apply hone (.keepValues s.inventory.texts (s.inventory.icons.get k s.now).2) nofun trivial
  | setIcon k v =>
    apply hone (.keepValues s.inventory.texts (s.inventory.icons.insert k s.now v).2) nofun trivial
  | forgetTheme =>
    apply hone (.keepValues s.inventory.texts.clear.2 s.inventory.icons.clear.2) nofun trivial
  | register c =>
    rw [serve_register]
    apply hone (.present (s.inventory.register c).registered) nofun trivial
  | canvasOf o => apply hone (.canvasOf o) nofun trivial
  | mount o m => apply hone (.mount o m) nofun trivial
  | touch o => apply hone (.touch o) nofun trivial
  | renderer o => apply hdraws (course_renderer s o)
  | findRenderer o => apply hone (.findRenderer o) nofun trivial
  | setTheme o t =>
    apply Course.single (.setTheme o t) _ trivial
    rintro o' t' h
    cases h
    rfl
  | themeOf o => apply hone (.themeOf o) nofun trivial
  | texture o => apply hone (.texture o) nofun trivial
  | dropTexture o => apply hone (.dropTexture o) nofun trivial
  | decide now repainted refreshed =>
    apply hone (.plan (s.inventory.schedule.decideAt now repainted refreshed).2) nofun trivial
  | sweep repainted refreshed =>
    apply (course_sweep s repainted refreshed).mono
    rintro _ _ ha o t rfl
    exact ha.elim
  | forgetCanvas c =>
    apply (course_forgetCanvas s c).mono
    rintro _ _ ha o t rfl
    exact ha.elim
  | paint c nodes => apply hdraws (course_paintAll s c nodes)
  | walk nodes => apply hdraws (course_keepAlive s nodes)

/-- A request is served by a course of acts. -/
theorem course_serve (s : Studio) (r : Request) :
  Course (fun _ _ => True) s (s.serve r)
  := (course_serve_dressing s r).mono fun _ _ _ => trivial

/-! ### The balance of a studio -/

/-- The reading of the clock has no part in the balance. -/
theorem balanced_atTime (hb : s.holdings.Balanced) (t : Instant) :
  (s.atTime t).holdings.Balanced
  := by
  constructor
  · apply hb.numbered
  · apply hb.renderers
  · apply hb.released

theorem balanced_serveAll (rs : List (Instant × Request)) (hb : s.holdings.Balanced) :
  (s.serveAll rs).holdings.Balanced
  := by
  rw [serveAll]
  apply List.foldlRecOn (motive := fun s : Studio => s.holdings.Balanced) rs _ hb
  intro s hs r _
  apply (course_serve (s.atTime r.1) r.2).balanced (balanced_atTime hs r.1)

/-- A studio that serves requests, whatever its configuration, its host and the readings of
its clock, serves the next one by transactions.  At every point between them each renderer
created is either held or was destroyed, once; a renderer that does not stay is dismantled,
in one piece with the texture and the theme of its object, and a theme leaves only so. -/
theorem serve_transacts (layouts : Layouts) (c : Config) (policy : Policy)
    (rs : List (Instant × Request)) (t : Instant) (r : Request) :
  let before := ((ofConfig layouts c policy).serveAll rs).atTime t
  let after := before.serve r
  (∃ xs : List Transaction,
      Holdings.Course before.holdings xs after.holdings
      ∧ after.host.log.events
        = (xs.flatMap Transaction.events).reverse ++ before.host.log.events
      ∧ (∀ n, ((xs.take n).foldl Transaction.after before.holdings).Balanced)
      ∧ (∀ o r, before.inventory.renderers.resident o = some r →
        (after.inventory.renderers.resident o ≠ some r ↔ ∃ h, .dismantle o r h ∈ xs))
      ∧ (∀ o, before.inventory.themes.resident o ≠ none →
        after.inventory.themes.resident o = none → ∃ r h, .dismantle o r h ∈ xs))
    ∧ after.host.log.created.Nodup
    ∧ after.host.log.created.Perm (after.inventory.renderers.toList ++ after.host.log.destroyed)
    ∧ after.host.log.released = after.host.log.destroyed.map Prod.fst
  := by
  intro before after
  have hb : before.holdings.Balanced :=
    balanced_atTime (balanced_serveAll rs (balanced_ofConfig layouts c policy)) t
  obtain ⟨xs, hx⟩ := (course_serve before r).exists_transactions
  have hb' := hx.balanced hb
  constructor
  · use xs, hx, hx.events_eq
    constructor
    · intro n
      apply hx.invariant_take (fun _ _ => Holdings.Balanced.after) hb
    constructor
    · intro o r hr
      apply hx.dismantled_iff hb hr
    · intro o hth hnone
      by_contra hno
      apply hx.theme_of_not_dismantled _ hth hnone
      intro r h hm
      apply hno
      use r, h
  · use hb'.nodup_created, created_perm hb'
    apply hb'.released

end Studio

end FrameCache
